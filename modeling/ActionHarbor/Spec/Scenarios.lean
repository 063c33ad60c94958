import ActionHarbor.Spec.CallCounts
import ActionHarbor.Spec.ProposalGrammar
import ActionHarbor.Spec.ShownRuns

/-!
# The scenarios, as they are told

The page tells of each scenario what will become of it before it is started. Behind the fake
model a run goes as it is told: the goal of a scenario makes the model propose the action it
is about first of all, and the policy's verdict on that action decides which states are open.

## Key results

- `proposeRun_verdict`: the verdict on a new run is the one its scenario is told to get
- `Server.goes_as_told`: what holds of every run of a scenario
-/

namespace ActionHarbor

/-- The action a scenario is about. -/
def ScenarioId.actionType : ScenarioId → ActionType
  | .blocked => .issueRefund
  | .approval | .replay | .stale => .sendCustomerMessage
  | .unknownOutcome => .createInternalTicket

/-- The verdict it is told to get. -/
def ScenarioId.verdict : ScenarioId → PolicyVerdict
  | .blocked => deny [.missingFinanceRole, .highImpact]
  | .approval | .replay | .stale => requireApproval [.externalCommunication]
  | .unknownOutcome => allow

/-! ## What the model proposes -/

section
variable [Host]

/-- The goals of the scenarios have no letters to lower, and neither has the empty text. -/
structure LowersGoals : Prop where
  empty : Host.toLowerCase [] = []
  goals : ∀ flow ∈ scenarios, Host.toLowerCase flow.goal = flow.goal

/-- The first action that is built for the goal of a scenario is the one it is about. One of
    the goals has a second keyword in it, but behind the first. -/
theorem FakeModelAdapter.planned_scenario (hlower : LowersGoals) {flow : ScenarioMeta}
    (hflow : flow ∈ scenarios) (resourceId : JsString) :
    ∃ parameters more, FakeModelAdapter.planned ⟨flow.goal, resourceId⟩ =
      ⟨resourceId, [], parameters⟩ :: more ∧ parameters.actionType = flow.id.actionType := by
  have hgoal := hlower.goals flow hflow
  -- the words of the goal decide: a ticket comes before a message, that before a refund
  have hbuilt : ∀ ticket message refund : Bool,
      (includes flow.goal (js "ticket") || includes flow.goal (js "incident")) = ticket →
      (includes flow.goal (js "message") || includes flow.goal (js "email") ||
        includes flow.goal (js "notify") || includes flow.goal (js "sms")) = message →
      includes flow.goal (js "refund") = refund →
      (ticket = true → flow.id.actionType = .createInternalTicket) →
      (ticket = false → message = true → flow.id.actionType = .sendCustomerMessage) →
      (ticket = false → message = false → refund = true ∧ flow.id.actionType = .issueRefund) →
      ∃ parameters more, FakeModelAdapter.planned ⟨flow.goal, resourceId⟩ =
        ⟨resourceId, [], parameters⟩ :: more ∧ parameters.actionType = flow.id.actionType := by
    intro ticket message refund hticket hmessage hrefund hone htwo hthree
    unfold FakeModelAdapter.planned FakeModelAdapter.matched
    simp only [hgoal, hticket, hmessage, hrefund]
    cases ticket with
    | true => exact ⟨_, _, rfl, (hone rfl).symm⟩
    | false =>
      cases message with
      | true => exact ⟨_, _, rfl, (htwo rfl rfl).symm⟩
      | false =>
        obtain ⟨rfl, htype⟩ := hthree rfl rfl
        exact ⟨_, _, rfl, htype.symm⟩
  simp only [scenarios, List.mem_cons, List.not_mem_nil, or_false] at hflow
  rcases hflow with rfl | rfl | rfl | rfl | rfl
  · exact hbuilt false false true (by decide +kernel) (by decide +kernel) (by decide +kernel)
      (fun h => by cases h) (fun _ h => by cases h) fun _ _ => ⟨rfl, rfl⟩
  · exact hbuilt false true false (by decide +kernel) (by decide +kernel) (by decide +kernel)
      (fun h => by cases h) (fun _ _ => rfl) fun _ h => by cases h
  · exact hbuilt false true true (by decide +kernel) (by decide +kernel) (by decide +kernel)
      (fun h => by cases h) (fun _ _ => rfl) fun _ h => by cases h
  · exact hbuilt false true false (by decide +kernel) (by decide +kernel) (by decide +kernel)
      (fun h => by cases h) (fun _ _ => rfl) fun _ h => by cases h
  · exact hbuilt true false false (by decide +kernel) (by decide +kernel) (by decide +kernel)
      (fun _ => rfl) (fun h => by cases h) fun h => by cases h

omit [Host] in
/-- An action without a resource is not read back. -/
theorem RawAction.safeParse_reread_ne {action parsed : RawAction}
    (h : RawAction.safeParse action.toCanonical.reread = some parsed) :
    action.resourceId ≠ [] := by
  rw [RawAction.toCanonical, reread_object_of_names
    [js "actionType", js "resourceId", js "evidenceRefs", js "parameters"] rfl (by decide)
    (by decide)] at h
  simp only [RawAction.safeParse, Option.bind_eq_bind, Option.bind_eq_some_iff,
    Zod.strictObject_eq_some, Zod.nonEmptyString, Zod.boundedString_eq_some] at h
  obtain ⟨props, ⟨hprops, -⟩, schema, -, resourceId, ⟨hid, hlength, -⟩, -⟩ := h
  cases hprops
  have hid : JsValue.string action.resourceId = .string resourceId := by
    simpa [Canonical.reread] using hid
  cases hid
  exact List.length_pos_iff.mp hlength

/-- What a printed envelope parses to was read of its actions one by one. -/
theorem safeParse_of_parseModelProposal {actions parsed : List RawAction}
    (hexact : ∀ action ∈ actions, ∀ amount ∈ action.parameters.amount, amount.ReadExactly)
    (h : parseModelProposal (stringify (proposalEnvelope actions)) = some parsed) :
    utf8ByteLength (stringify (proposalEnvelope actions)) ≤ maxProposalBytes ∧
      actions.mapM (fun action => RawAction.safeParse action.toCanonical.reread) = some parsed := by
  have hread : (proposalEnvelope actions).ReadExactly := by
    refine ⟨readExactlyItems_iff.mpr fun item hitem => ?_, trivial⟩
    obtain ⟨action, haction, rfl⟩ := List.mem_map.mp hitem
    exact RawAction.readExactly_toCanonical (hexact action haction)
  have hactions : (proposalEnvelope actions).reread = .object [(js "actions",
      .array (actions.map fun action => action.toCanonical.reread))] := by
    rw [proposalEnvelope, reread_object_of_names [js "actions"] rfl (by decide) (by decide)]
    simp [Canonical.reread, rereadItems_eq]
  -- the text is read back as the envelope it was printed from
  rw [parseModelProposal] at h
  split at h
  · cases h
  rename_i hsize
  rw [jsonParse_stringify _ hread, hactions, Option.bind_some, parseRawProposalEnvelope] at h
  simp only [Option.bind_eq_bind, Option.bind_eq_some_iff, Zod.strictObject_eq_some] at h
  obtain ⟨props, ⟨hprops, -⟩, hitems⟩ := h
  cases hprops
  refine ⟨Nat.not_lt.mp hsize, ?_⟩
  have hitems : Zod.boundedArray RawAction.safeParse 1 5
      (.array (actions.map fun action => action.toCanonical.reread)) = some parsed := by
    simpa using hitems
  rw [Zod.boundedArray] at hitems
  split at hitems
  · rw [List.mapM_map] at hitems
    exact hitems
  · cases hitems

/-- Whatever the answer of the fake model parses to is what it built. -/
theorem FakeModelAdapter.parse_planned (hlower : LowersGoals)
    (hexact : (JsNumber.ofNat 1000).ReadExactly) {request : ModelProposeRequest}
    {actions : List RawAction}
    (h : parseModelProposal (FakeModelAdapter.propose request) = some actions) :
    actions = FakeModelAdapter.planned request := by
  have hbuilds := fun action => @FakeModelAdapter.builds_of_mem _ hlower.empty request action
  obtain ⟨hmin, hmax⟩ := FakeModelAdapter.length_planned request
  have hanswer : FakeModelAdapter.propose request =
      stringify (proposalEnvelope (FakeModelAdapter.planned request)) := by
    rw [FakeModelAdapter.propose, FakeModelAdapter.actions_eq, proposalEnvelope]
  have hamount : ∀ action ∈ FakeModelAdapter.planned request,
      ∀ amount ∈ action.parameters.amount, amount.ReadExactly := by
    intro action haction amount hamount
    cases hbuilds action haction with
    | refund hgoal =>
      obtain rfl := Option.some.inj hamount
      exact hexact
    | ticket | message | review => cases hamount
  rw [hanswer] at h
  obtain ⟨hsize, hitems⟩ := safeParse_of_parseModelProposal hamount h
  -- the first action was read back, so there is a resource, and it is every action's
  have hresource : request.resourceId ≠ [] := by
    cases hplanned : FakeModelAdapter.planned request with
    | nil => simp [hplanned] at hmin
    | cons action more =>
      rw [hplanned, List.mapM_cons] at hitems
      obtain ⟨first, hfirst, -⟩ := Option.bind_eq_some_iff.mp hitems
      have hid := RawAction.safeParse_reread_ne hfirst
      cases hbuilds action (hplanned ▸ List.mem_cons_self) <;> exact hid
  have hvalid : ∀ action ∈ FakeModelAdapter.planned request, action.Valid :=
    fun action haction => (hbuilds action haction).valid hresource
  rw [parseModelProposal_stringify hvalid hmin (by omega) hamount hsize] at h
  exact (Option.some.inj h).symm

/-! ## What the policy says -/

/-- The verdict on a new run is the one its scenario is told to get. -/
theorem proposeRun_verdict (hlower : LowersGoals) (hexact : (JsNumber.ofNat 1000).ReadExactly)
    {scenarioId : JsString} {draw : CreateDraw} {run : RunRecord}
    (h : proposeRun FakeModelAdapter.propose scenarioId draw = .ok run) :
    run.policyVerdict = run.scenario.verdict := by
  obtain ⟨flow, action, more, hflow, hparse, hproposed⟩ := proposeRun_record h
  have hflow : flow ∈ scenarios := List.mem_of_find?_eq_some hflow
  obtain ⟨parameters, others, hplanned, htype⟩ :=
    FakeModelAdapter.planned_scenario hlower hflow draw.resourceId
  have hactions := FakeModelAdapter.parse_planned hlower hexact hparse
  rw [hplanned] at hactions
  obtain ⟨rfl, -⟩ := List.cons.inj hactions
  have htype : RawAction.actionType ⟨draw.resourceId, [], parameters⟩ = flow.id.actionType := htype
  rw [hproposed.policyVerdict, hproposed.scenario, htype]
  simp only [scenarios, List.mem_cons, List.not_mem_nil, or_false] at hflow
  rcases hflow with rfl | rfl | rfl | rfl | rfl <;> rfl

/-! ## What becomes of a run -/

omit [Host] in
/-- What a state, and a drift, tell of the verdict. -/
structure RunRecord.Judged (run : RunRecord) : Prop where
  denied : run.state = .denied → run.policyVerdict.outcome = .deny
  parked : run.state = .approvalRequired → run.policyVerdict.outcome = .requireApproval
  drifted : run.drifted = true → run.policyVerdict.outcome = .requireApproval

omit [Host] in
/-- A run that keeps its status. -/
theorem RunRecord.Judged.same {run run' : RunRecord} (h : run.Judged)
    (hplan : run'.toRunPlan = run.toRunPlan) (hstate : run'.state = run.state)
    (hdrifted : run'.drifted = run.drifted) : run'.Judged := by
  refine ⟨fun hdenied => ?_, fun hparked => ?_, fun hdrift => ?_⟩
  · rw [hplan]
    exact h.denied (hstate.symm.trans hdenied)
  · rw [hplan]
    exact h.parked (hstate.symm.trans hparked)
  · rw [hplan]
    exact h.drifted (hdrifted.symm.trans hdrift)

/-- A new run is where its verdict leads. -/
theorem RunRecord.Judged.born {model : ModelAdapter} {sys : RunSystem} (h : Born model sys) :
    sys.run.Judged := by
  obtain ⟨scenarioId, draw, registry, run, c, hnew⟩ := h
  obtain ⟨flow, action, more, -, -, hproposed⟩ := proposeRun_record hnew
  have hundrifted : run.drifted = true → run.policyVerdict.outcome = .requireApproval :=
    fun hdrifted => by cases hproposed.drifted.symm.trans hdrifted
  have hcase := followVerdict_cases registry draw.authorize (proposeRun_eq_ok hnew).state
  show (followVerdict registry run draw.authorize).run.Judged
  generalize followVerdict registry run draw.authorize = turn at hcase
  cases hcase with
  | denied houtcome => exact ⟨fun _ => houtcome, fun h => (by cases h), hundrifted⟩
  | parked houtcome => exact ⟨fun h => (by cases h), fun _ => houtcome, hundrifted⟩
  | allowed houtcome =>
    have hbase : RunRecord.Judged { run with state := .authorized } :=
      ⟨fun h => (by cases h), fun h => (by cases h), hundrifted⟩
    have hsame := (authorizeAndExecute_facts registry { run with state := .authorized }
      (.policyAllow run.policyVerdict) draw.authorize).same
    exact hbase.same hsame.plan hsame.state hsame.drifted

/-- One step of a run leads to no state its verdict has not opened. -/
theorem RunRecord.Judged.step {C : RunSystem → CallReads → Prop} {sys sys' : RunSystem}
    (h : sys.run.Judged) (hsound : sys.Sound) (hstep : RunStep C sys sys') : sys'.run.Judged := by
  -- another call for the run leaves its plan, its state and its drift
  have hagain : ∀ (c : RequestId) (registry : CapabilityRegistry) (capability : Capability)
      (reads : CallReads),
      (sys.enter c (executeForRun registry sys.run capability reads)).run.Judged := by
    intro c registry capability reads
    have hsame := (executeForRun_facts registry sys.run capability reads).same
    exact h.same hsame.plan hsame.state hsame.drifted
  cases hstep with
  | refused | executed | woke => exact h.same rfl rfl rfl
  | approved c registry draw turn hunused hturn =>
    cases approveRun_cases hsound.pinned hturn with
    | approved consumed row hstate =>
      have hbase : RunRecord.Judged { sys.run.appendRows [row] with
          approval := some consumed
          state := .authorized
          lastActionAt := Host.toISOString draw.lastActionAt } :=
        ⟨fun h => (by cases h), fun h => (by cases h), h.drifted⟩
      have hsame := (authorizeAndExecute_facts registry
        { sys.run.appendRows [row] with
          approval := some consumed
          state := .authorized
          lastActionAt := Host.toISOString draw.lastActionAt } (.approved consumed)
        draw.authorize).same
      exact hbase.same hsame.plan hsame.state hsame.drifted
  | replayed c registry reads turn hunused hturn =>
    obtain ⟨-, capability, -, rfl⟩ := replayRun_eq_ok hturn
    exact hagain c registry capability reads
  | reconciled c registry reads turn hunused hreads hturn =>
    obtain ⟨-, capability, -, rfl⟩ := reconcileRun_eq_ok hturn
    exact hagain c registry capability reads
  | drifted c now run hunused hdrift =>
    obtain ⟨hstate, rfl⟩ := simulateDrift_eq_ok hdrift
    have houtcome := h.parked hstate
    exact ⟨fun hdenied => (by cases hstate.symm.trans hdenied), fun _ => houtcome,
      fun _ => houtcome⟩
  | checked c stamp run result hunused hverify =>
    obtain ⟨row, -, rfl⟩ := verifyRunLedger_eq_ok hverify
    exact h.same rfl rfl rfl
  | resumed c settled now run outcome hrequest hfinish =>
    cases finishExecution_cases hfinish with
    | threw | illegal => exact h.same rfl rfl rfl
    | finished result state execution lastActionAt hresult =>
      rcases applyExecutionResult_eq_ok hresult with rfl | hedge
      · exact h.same rfl rfl rfl
      · -- a result never leads back
        have hmoved := hedge.moved.2
        exact ⟨fun hdenied => absurd (.inl hdenied) hmoved,
          fun hparked => absurd (.inr hparked) hmoved, h.drifted⟩

/-- What the texts of the scenarios tell of a run, as far as it holds at every moment. -/
structure RunSystem.GoesAsTold (sys : RunSystem) : Prop where
  verdict : sys.run.policyVerdict = sys.run.scenario.verdict
  /-- denied, without a capability and without a call -/
  blocked : sys.run.scenario = .blocked → sys.run.state = .denied ∧
    mintedCapabilities sys.history = [] ∧ sys.run.adapter.callCount = 0
  /-- never denied, and anything else only behind the approval of the exact plan -/
  approval : sys.run.scenario.actionType = .sendCustomerMessage →
    sys.run.state ≠ .denied ∧ (sys.run.state = .approvalRequired ∨ sys.Approved)
  /-- neither denied nor stale, and nothing waits for an approval -/
  unknownOutcome : sys.run.scenario = .unknownOutcome → sys.run.state = .authorized ∨
    sys.run.state = .verified ∨ sys.run.state = .unknownOutcome ∨
    sys.run.state = .reconciliationRequired

/-- The verdict decides which states are open. -/
theorem RunSystem.goesAsTold {sys : RunSystem} (hsound : sys.Sound)
    (hvisible : sys.run.state.Visible) (haccounted : sys.Accounted) (hjudged : sys.run.Judged)
    (hverdict : sys.run.policyVerdict = sys.run.scenario.verdict) : sys.GoesAsTold where
  verdict := hverdict
  blocked hscenario := by
    have hstate : sys.run.state = .denied := hsound.denied (by rw [hverdict, hscenario]; rfl)
    have hidle := hsound.parked (.inl hstate)
    refine ⟨hstate, hidle.minted, ?_⟩
    rw [hsound.counted, hidle.executed]
    rfl
  approval htype := by
    have houtcome : sys.run.policyVerdict.outcome = .requireApproval := by
      rw [hverdict]
      cases hscenario : sys.run.scenario <;> rw [hscenario] at htype <;> first | rfl | cases htype
    refine ⟨fun hdenied => ?_, ?_⟩
    · cases (hjudged.denied hdenied).symm.trans houtcome
    · by_cases hstate : sys.run.state = .approvalRequired
      · exact .inl hstate
      · exact .inr (hsound.approved houtcome hstate)
  unknownOutcome hscenario := by
    have houtcome : sys.run.policyVerdict.outcome = .allow := by rw [hverdict, hscenario]; rfl
    cases hstate : sys.run.state with
    | authorized => exact .inl rfl
    | verified => exact .inr (.inl rfl)
    | unknownOutcome => exact .inr (.inr (.inl rfl))
    | reconciliationRequired => exact .inr (.inr (.inr rfl))
    | denied => cases (hjudged.denied hstate).symm.trans houtcome
    | approvalRequired => cases (hjudged.parked hstate).symm.trans houtcome
    | stale => cases (hjudged.drifted (haccounted.run.stale hstate)).symm.trans houtcome
    | _ =>
      rw [hstate] at hvisible
      exact hvisible.elim

/-- In every reachable state every run goes as its scenario is told, with the fake model. -/
theorem Server.goes_as_told (hlower : LowersGoals) (hexact : (JsNumber.ofNat 1000).ReadExactly)
    {events : List ServerEvent} {s : Server}
    (hrun : Transition.run (Server.step FakeModelAdapter.propose) {} events = some s)
    {ref : RunRef} {run : RunRecord} (hrecord : s.state.records ref = some run) :
    (s.view ref run).GoesAsTold := by
  have hsystem : s.system ref = some (s.view ref run) := by rw [system, hrecord]; rfl
  obtain ⟨hsound, hjudged, hverdict⟩ : (s.view ref run).Sound ∧ run.Judged ∧
      run.policyVerdict = run.scenario.verdict := by
    refine run_system_invariant (P := fun sys => sys.Sound ∧ sys.run.Judged ∧
      sys.run.policyVerdict = sys.run.scenario.verdict) ?_ ?_ (meets_true {} events) hrun hsystem
    · intro sys hborn
      refine ⟨.born hborn, .born hborn, ?_⟩
      obtain ⟨scenarioId, draw, registry, run, c, hnew⟩ := hborn
      have hplan := followVerdict_plan registry draw.authorize (proposeRun_eq_ok hnew).state
      show (followVerdict registry run draw.authorize).run.policyVerdict = _
      rw [RunSystem.enter, RunSystem.change_run, hplan]
      exact proposeRun_verdict hlower hexact hnew
    · rintro sys sys' ⟨hsound, hjudged, hverdict⟩ hstep
      refine ⟨hsound.step hstep, hjudged.step hsound hstep, ?_⟩
      rw [hstep.plan hsound]
      exact hverdict
  exact RunSystem.goesAsTold hsound (run_unfailing hrun hsystem).visible
    (run_accounted hrun hsystem) hjudged hverdict

end

namespace Sample

section
attribute [local instance] node

theorem approvedMessage_goesAsTold :
    ∃ s run, Transition.run (Server.step FakeModelAdapter.propose) {} approvedMessage = some s ∧
      s.state.records 0 = some run ∧ (s.view 0 run).GoesAsTold := by
  have hlower : LowersGoals := ⟨by decide +kernel, by decide +kernel⟩
  obtain ⟨s, run, hs, hrecord, -⟩ := approvedMessage_run
  exact ⟨s, run, hs, hrecord, Server.goes_as_told hlower (fun _ _ _ => rfl) hs hrecord⟩

end

end Sample

end ActionHarbor
