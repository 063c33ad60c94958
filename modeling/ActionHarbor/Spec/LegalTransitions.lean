import ActionHarbor.Spec.Authority

/-!
# Legal transitions

The guards of the requests, the results of `executeAction` and the transition table
fit together as long as a lookup is never made twice for one unknown outcome. A
request in flight either leaves the state alone or is the only one that does not,
and it finds the state its result has an edge from. A second lookup breaks this,
and `reconcileRun` and the page offer one from `RECONCILIATION_REQUIRED`.

## Key results

- `RunSystem.Legal.step`: one step of a run keeps the invariant
- `Server.no_illegal_transition`: no request dies with the error of `mustTransition`
-/

namespace ActionHarbor

section
variable [Host]

/-! ## Receipts of the run's own plan -/

/-- A receipt that satisfies the run's own postcondition. -/
def RunPlan.Accepts (plan : RunPlan) (receipt : JsValue) : Prop :=
  ∀ postcondition, plan.postcondition = some postcondition →
    verifyPostcondition plan.actionType receipt postcondition = true

/-- A receipt constructed for the run's own plan does. -/
theorem Constructed.accepts {plan : RunPlan} {capability : Capability} {actionType : ActionType}
    {receipt : JsValue}
    (h : Constructed plan.operation capability plan.parameters.toJsValue actionType receipt)
    (htype : plan.actionType = actionType) : plan.Accepts receipt := by
  subst htype
  intro postcondition hpost
  rw [RunPlan.postcondition] at hpost
  rw [RunPlan.actionType] at h ⊢
  cases hparameters : plan.parameters with
  | createInternalTicket title description priority =>
    rw [hparameters] at h hpost
    obtain rfl := Option.some.inj hpost
    simp only [RawActionParameters.actionType] at h ⊢
    cases h with
    | ticket r hvalid hkey =>
      simp [verifyPostcondition, verifyTicketPostcondition,
        TicketReceipt.safeParse_toJsValue hvalid, hkey, RunPlan.operation]
  | sendCustomerMessage customerId body channel =>
    rw [hparameters] at h hpost
    obtain rfl := Option.some.inj hpost
    simp only [RawActionParameters.actionType] at h ⊢
    cases h with
    | message r hvalid hkey _ hcustomerId hbody hchannel =>
      -- the receipt's fields are read off the parameters
      simp only [RawActionParameters.toJsValue, JsValue.getProp, propOf_cons, js_inj,
        Option.some.injEq] at hcustomerId hbody hchannel
      simp_all [verifyPostcondition, verifyMessagePostcondition,
        MessageReceipt.safeParse_toJsValue hvalid, RunPlan.operation]
  | issueRefund orderId amountMinorInteger currency reason =>
    rw [hparameters] at hpost
    cases hpost

/-- Every receipt in the tables of a run's adapter. -/
structure FakeAdapter.AcceptedBy (adapter : FakeAdapter) (plan : RunPlan) : Prop where
  remembered : ∀ key record, adapter.byIdempotencyKey key = some record →
    plan.Accepts record.receipt
  registered : ∀ operationId receipt, adapter.byOperationId operationId = some receipt →
    plan.Accepts receipt

theorem FakeAdapter.acceptedBy_empty (plan : RunPlan) : AcceptedBy {} plan where
  remembered _ _ h := by cases h
  registered _ _ h := by cases h

/-- An `execute` with the run's own plan leaves only such receipts. -/
theorem FakeAdapter.AcceptedBy.execute {plan : RunPlan} {kind : FakeAdapterKind}
    {adapter adapter' : FakeAdapter} {capability : Capability} {receipt : JsValue}
    (h : adapter.AcceptedBy plan) (htype : plan.actionType = kind.actionType)
    (houtcome : ExecuteOutcome kind adapter plan.operation capability plan.parameters.toJsValue
      adapter' receipt) : adapter'.AcceptedBy plan := by
  have hregistered : ∀ {adapter : FakeAdapter} {receipt : JsValue} (operationId : JsString),
      adapter.AcceptedBy plan → plan.Accepts receipt →
      (adapter.registered operationId receipt).AcceptedBy plan := by
    -- registering puts an accepted receipt under one more operation
    intro adapter receipt operationId hadapter hreceipt
    refine ⟨hadapter.remembered, fun id found hfound => ?_⟩
    by_cases hid : id = operationId
    · subst hid
      rw [registered_byOperationId, Function.update_self] at hfound
      exact Option.some.inj hfound ▸ hreceipt
    · rw [registered_byOperationId, Function.update_of_ne hid] at hfound
      exact hadapter.registered id found hfound
  cases houtcome with
  | reused existing hexisting hhash => exact hregistered _ h (h.remembered _ _ hexisting)
  | constructed payloadHash _ hnew hhash hconstructed =>
    have hreceipt : plan.Accepts receipt := hconstructed.accepts htype
    refine hregistered _ ⟨fun key record hrecord => ?_, h.registered⟩ hreceipt
    by_cases hkey : key = plan.operation.idempotencyKey
    · subst hkey
      rw [remembered_byIdempotencyKey, Function.update_self] at hrecord
      exact Option.some.inj hrecord ▸ hreceipt
    · rw [remembered_byIdempotencyKey, Function.update_of_ne hkey] at hrecord
      exact h.remembered key record hrecord

/-- A promise of the run's own adapter: `execute` was handed the run's plan, and a
    lookup found a receipt of it or nothing. -/
def AdapterPromise.Own (plan : RunPlan) : AdapterPromise → Prop
  | .sleeping operation capability params =>
    operation = plan.operation ∧ capability.actionType = plan.actionType ∧
      params = plan.parameters.toJsValue
  | .executed _ => True
  | .lookedUp answer => ∀ status, answer.getProp (js "status") = some status →
    status.isString (js "unknown") = false →
      plan.Accepts ((answer.getProp (js "receipt")).getD .undefined)

/-- What a lookup answers. -/
theorem FakeAdapter.AcceptedBy.lookup {plan : RunPlan} {adapter : FakeAdapter}
    (h : adapter.AcceptedBy plan) (operationId : JsString) :
    (AdapterPromise.lookedUp (adapter.lookup operationId)).Own plan := by
  intro status hstatus hunknown
  rw [FakeAdapter.lookup] at hstatus ⊢
  cases hfound : adapter.byOperationId operationId with
  | some receipt =>
    rw [hfound] at hstatus
    have haccepts := h.registered operationId receipt hfound
    simpa [JsValue.getProp] using haccepts
  | none =>
    rw [hfound] at hstatus
    simp only [JsValue.getProp, propOf_cons, if_true, Option.some.injEq] at hstatus
    subst hstatus
    simp [JsValue.isString] at hunknown

/-! ## The state a result awaits -/

/-- The state the result of a settled call has its edge from; `none` when the result
    has no edge. -/
def Settled.awaits : Settled → Option RunState
  | .returned (.ok _ _ _ reasonCode _) =>
    if reasonCode = some .reconciledSuccess then some .unknownOutcome
    else if reasonCode = some .idempotentReplay then none
    else some .authorized
  | .returned (.precondition _ _) | .returned (.unknownOutcome _ _)
  | .returned (.postcondition _) => some .authorized
  | .returned (.reconciliationRequired _ _) => some .unknownOutcome
  | _ => none

/-- The call was answered with a success on record. -/
def Settled.Replays : Settled → Prop
  | .returned (.ok _ _ _ reasonCode _) => reasonCode = some .idempotentReplay
  | _ => False

/-- The call put its success on record. -/
def Settled.Verifies : Settled → Prop
  | .returned (.ok _ _ _ reasonCode _) => reasonCode ≠ some .idempotentReplay
  | _ => False

/-- The state the result of a waiting call will have its edge from. -/
def Waiting.awaits (waiting : Waiting) : RunState :=
  if waiting.reconciles then .unknownOutcome else .authorized

omit [Host] in
theorem Settled.Verifies.awaits_ne_none {settled : Settled} (h : settled.Verifies) :
    settled.awaits ≠ none := by
  unfold Settled.Verifies at h
  split at h
  · rename_i reasonCode _
    by_cases hreconciled : reasonCode = some .reconciledSuccess
    · simp [Settled.awaits, hreconciled]
    · simp [Settled.awaits, hreconciled, h]
  · exact h.elim

omit [Host] in
/-- A result that finds its state is applied, and one without an edge changes nothing. -/
theorem applyExecutionResult_legal {state : RunState} {result : ExecuteActionResult}
    (hawaits : ∀ awaited, (Settled.returned result).awaits = some awaited → state = awaited)
    (hreplays : (Settled.returned result).Replays → state ≠ .authorized) :
    ∃ state', applyExecutionResult state result = .ok state' ∧
      ((Settled.returned result).awaits = none → state' = state) := by
  cases result with
  | ok receipt replay operationId reasonCode auditEvents =>
    by_cases hreconciled : reasonCode = some .reconciledSuccess
    · subst hreconciled
      obtain rfl := hawaits .unknownOutcome rfl
      exact ⟨.verified, rfl, fun h => by cases h⟩
    · by_cases hreplay : reasonCode = some .idempotentReplay
      · subst hreplay
        refine ⟨state, ?_, fun _ => rfl⟩
        simp [applyExecutionResult, hreplays rfl]
      · have hawaited : (Settled.returned (.ok receipt replay operationId reasonCode
            auditEvents)).awaits = some .authorized := by
          simp [Settled.awaits, hreconciled, hreplay]
        -- a first success is the only other one
        obtain rfl := hawaits _ hawaited
        refine ⟨.verified, ?_, fun h => ?_⟩
        · simp only [applyExecutionResult, if_neg hreconciled, if_true]
          rfl
        · rw [hawaited] at h
          cases h
  | precondition =>
    obtain rfl := hawaits .authorized rfl
    exact ⟨.stale, rfl, fun h => by cases h⟩
  | unknownOutcome =>
    obtain rfl := hawaits .authorized rfl
    exact ⟨.unknownOutcome, rfl, fun h => by cases h⟩
  | postcondition =>
    obtain rfl := hawaits .authorized rfl
    exact ⟨.failed, rfl, fun h => by cases h⟩
  | reconciliationRequired =>
    obtain rfl := hawaits .unknownOutcome rfl
    exact ⟨.reconciliationRequired, rfl, fun h => by cases h⟩
  | capability | idempotency | adapter => exact ⟨state, rfl, fun _ => rfl⟩

/-! ## The call of a request -/

/-- A call on the run would look its operation up: the capability is valid at this
    time, and the operation on record has neither succeeded nor failed. -/
structure RunRecord.LooksUp (run : RunRecord) (capability : Capability) (now : Instant)
    (prior : OperationRecord) : Prop where
  valid : ∃ parsed, parseAndValidateCapability capability.toJsValue run.request now = .ok parsed
  recorded : run.Recorded prior
  unreplayed : ¬ (prior.state = .succeeded ∧ prior.receipt.isUndefined = false)
  unfailed : prior.state ≠ .failed

/-- Where `executeForRun` leaves its request, and the promise it awaits. -/
inductive CallStage (run : RunRecord) (capability : Capability) (reads : CallReads) :
    Option RequestStage → Option AdapterPromise → Prop
  | unwired : CallStage run capability reads none none
  | inert (settled : Settled) (hawaits : settled.awaits = none)
      (hrecorded : settled.Concludes ∨ settled.Replays →
        ∃ operation, run.Recorded operation) :
      CallStage run capability reads (some (.settled settled)) none
  | stale (reasonCodes : List PreconditionRejectionReason) (auditEvents : List AuditLedgerEntry)
      (hversions : run.resourceVersionNow ≠ run.resourceVersionAtProposal) :
      CallStage run capability reads
        (some (.settled (.returned (.precondition reasonCodes auditEvents)))) none
  | lookingUp (postcondition : PostconditionExpectation) (prior : OperationRecord)
      (hpost : run.postcondition = some postcondition)
      (hlooks : run.LooksUp capability reads.now prior) :
      CallStage run capability reads
        (some (.waiting (.lookingUp ⟨run.callInput capability postcondition, prior⟩)))
        (some (.lookedUp (run.adapter.inner.lookup prior.operationId)))
  | entered (waiting : Waiting) (promise : Option AdapterPromise)
      (postcondition : PostconditionExpectation)
      (hpost : run.postcondition = some postcondition)
      (hinput : waiting.input = run.callInput capability postcondition)
      (hreconciles : waiting.reconciles = false) (hnew : ∀ operation, ¬ run.Recorded operation)
      (hversions : run.resourceVersionNow = run.resourceVersionAtProposal)
      (hpromise : ∀ own, promise = some own → own.Own run.toRunPlan) :
      CallStage run capability reads (some (.waiting waiting)) promise

omit [Host] in
/-- A valid capability of the run's plan only fails its preconditions on the version. -/
theorem versions_of_checkPreconditions_error {run : RunRecord} {capability parsed : Capability}
    {postcondition : PostconditionExpectation} {reasonCodes : List PreconditionRejectionReason}
    (hhash : parsed.proposalHash = run.proposalHash)
    (h : checkPreconditions parsed (run.callInput capability postcondition).precondition =
      .error reasonCodes) :
    run.resourceVersionNow ≠ run.resourceVersionAtProposal := by
  intro hversions
  rw [checkPreconditions] at h
  simp [RunRecord.callInput, RunRecord.precondition, hhash, hversions] at h

/-- Every call of a run is one of these. -/
theorem executeForRun_stage (registry : CapabilityRegistry) (run : RunRecord)
    (capability : Capability) (reads : CallReads) :
    CallStage run capability reads (executeForRun registry run capability reads).stage
      (executeForRun registry run capability reads).promise := by
  have hcase := executeForRun_cases registry run capability reads
  generalize executeForRun registry run capability reads = turn at hcase
  cases hcase with
  | unwired message hpost => exact .unwired
  | called postcondition shared progress hpost houtcome =>
    cases houtcome with
    -- a call that is refused or replayed is inert
    | capabilityRefused | unhashableParams | registryRefused =>
      exact .inert _ rfl fun h => by rcases h with h | h <;> exact h.elim
    | replayedFailure | conflict =>
      exact .inert _ rfl fun h => by rcases h with h | h <;> exact h.elim
    | preconditionFailed parsed reasonCodes entry hguard hprecondition =>
      have hhash : parsed.proposalHash = run.proposalHash :=
        (scope_of_parseAndValidateCapability hguard).2.2.2
      exact .stale reasonCodes [entry]
        (versions_of_checkPreconditions_error hhash hprecondition)
    | replayed parsed prior entry hguards hhash hrecord hstate hreceipt =>
      exact .inert _ rfl fun _ => ⟨prior, hrecord⟩
    | lookingUp parsed prior hguards hhash hrecord hnotReplayed hnotFailed =>
      exact .lookingUp postcondition prior hpost
        ⟨⟨parsed, hguards.1⟩, hrecord, hnotReplayed, hnotFailed⟩
    | entered parsed payloadHash registry' entry hguards hhash hnew hconsume hstarted =>
      have hunrecorded : ∀ operation, ¬ run.Recorded operation :=
        fun operation hrecord => by cases hnew.symm.trans hrecord
      have hversions := versions_of_checkPreconditions hguards.2
      rw [invokeAdapter]
      split
      · refine .entered _ _ postcondition hpost rfl rfl hunrecorded hversions ?_
        exact fun own hown => by cases hown
      · refine .entered _ _ postcondition hpost rfl rfl hunrecorded hversions ?_
        intro own hown
        obtain rfl := Option.some.inj hown
        exact ⟨rfl, hguards.scope.2.1, rfl⟩

/-! ## The invariant -/

/-- The run's operation succeeded, with a receipt. -/
def RunRecord.Succeeded (run : RunRecord) : Prop :=
  ∃ operation, run.Recorded operation ∧ operation.state = .succeeded ∧
    operation.receipt.isUndefined = false

/-- A waiting call is the run's own, and the run is in the state it awaits. -/
structure Waiting.Legal (run : RunRecord) (waiting : Waiting) : Prop where
  state : run.state = waiting.awaits
  versions : run.resourceVersionNow = run.resourceVersionAtProposal
  request : waiting.input.request = run.request
  postcondition : run.postcondition = some waiting.input.postcondition

/-- So is the run of a settled call whose result has an edge. -/
structure Settled.Legal (run : RunRecord) (settled : Settled) : Prop where
  state : ∀ state, settled.awaits = some state → run.state = state
  replays : settled.Replays → run.state.Concluded
  versions : settled.Concludes → run.resourceVersionNow = run.resourceVersionAtProposal
  succeeded : settled.Verifies → run.Succeeded

omit [Host] in
/-- A call is only answered from the record behind a concluded call. -/
theorem Settled.Legal.unauthorized {run : RunRecord} {settled : Settled} (h : settled.Legal run)
    (hreplays : settled.Replays) : run.state ≠ .authorized := by
  intro hstate
  have hconcluded := h.replays hreplays
  rw [hstate] at hconcluded
  exact hconcluded

/-- The request fits the state of its run. -/
def RequestStage.Legal (run : RunRecord) : RequestStage → Prop
  | .waiting call => call.Legal run
  | .settled outcome => outcome.Legal run

/-- The request will leave the state of its run alone. -/
def RequestStage.Inert : RequestStage → Prop
  | .waiting _ => False
  | .settled outcome => outcome.awaits = none

/-- All other requests leave the state alone. -/
def RunSystem.Alone (sys : RunSystem) (c : RequestId) : Prop :=
  ∀ c' stage, c' ≠ c → sys.requests c' = some stage → stage.Inert

/-- What holds of every run on which no lookup is made twice. -/
structure RunSystem.Legal (sys : RunSystem) : Prop where
  requests : ∀ c stage, sys.requests c = some stage → stage.Legal sys.run
  alone : ∀ c c' stage stage', c ≠ c' → sys.requests c = some stage →
    sys.requests c' = some stage' → stage.Inert ∨ stage'.Inert
  versions : sys.run.state.Concluded →
    sys.run.resourceVersionNow = sys.run.resourceVersionAtProposal
  verified : sys.run.state = .verified → sys.run.Succeeded
  receipts : sys.run.adapter.inner.AcceptedBy sys.run.toRunPlan
  promises : ∀ c promise, sys.promises c = some promise → promise.Own sys.run.toRunPlan
  answers : ∀ observation ∈ sys.history, observation.isIllegalTransition = false

omit [Host] in
/-- A request stays legal when the run keeps its plan, its state and its success. -/
theorem RequestStage.Legal.mono {run run' : RunRecord} {stage : RequestStage}
    (h : stage.Legal run) (hplan : run'.toRunPlan = run.toRunPlan)
    (hstate : run'.state = run.state)
    (hproposal : run'.resourceVersionAtProposal = run.resourceVersionAtProposal)
    (hnow : run'.resourceVersionNow = run.resourceVersionNow)
    (hsucceeded : run.Succeeded → run'.Succeeded) : stage.Legal run' := by
  cases stage with
  | waiting waiting =>
    refine ⟨hstate.trans h.state, ?_, ?_, ?_⟩
    · rw [hnow, hproposal]
      exact h.versions
    · rw [hplan]
      -- what the call was given comes from the plan
      exact h.request
    · rw [hplan]
      exact h.postcondition
  | settled settled =>
    refine ⟨fun state hawaits => hstate.trans (h.state state hawaits), ?_, ?_, ?_⟩
    · rw [hstate]
      exact h.replays
    · rw [hnow, hproposal]
      exact h.versions
    · exact fun hverifies => hsucceeded (h.succeeded hverifies)

omit [Host] in
/-- An inert request stays legal in any state behind a concluded call. -/
theorem RequestStage.Legal.inert {run run' : RunRecord} {stage : RequestStage}
    (h : stage.Legal run) (hinert : stage.Inert)
    (hstate : run.state.Concluded → run'.state.Concluded)
    (hproposal : run'.resourceVersionAtProposal = run.resourceVersionAtProposal)
    (hnow : run'.resourceVersionNow = run.resourceVersionNow) : stage.Legal run' := by
  cases stage with
  | waiting => exact hinert.elim
  | settled settled =>
    have hinert : settled.awaits = none := hinert
    refine ⟨fun state hawaits => ?_, fun hreplays => hstate (h.replays hreplays), ?_, ?_⟩
    · cases hinert.symm.trans hawaits
    · rw [hnow, hproposal]
      exact h.versions
    · exact fun hverifies => absurd hinert hverifies.awaits_ne_none

/-- Write one request back on a run that keeps its plan. -/
theorem RunSystem.Legal.change {sys : RunSystem} (h : sys.Legal) {run : RunRecord} {c : RequestId}
    {stage : Option RequestStage} {promise : Option AdapterPromise}
    {observations : List RunObservation} (hplan : run.toRunPlan = sys.run.toRunPlan)
    (hothers : ∀ c' stage', c' ≠ c → sys.requests c' = some stage' → stage'.Legal run)
    (hstage : ∀ stage', stage = some stage' →
      stage'.Legal run ∧ (stage'.Inert ∨ sys.Alone c))
    (hversions : run.state.Concluded → run.resourceVersionNow = run.resourceVersionAtProposal)
    (hverified : run.state = .verified → run.Succeeded)
    (hreceipts : run.adapter.inner.AcceptedBy run.toRunPlan)
    (hpromise : ∀ promise', promise = some promise' → promise'.Own run.toRunPlan)
    (hanswers : ∀ observation ∈ observations, observation.isIllegalTransition = false) :
    (sys.change run c stage promise observations).Legal where
  requests c' stage' hstage' := by
    by_cases hc : c' = c
    · subst hc
      exact (hstage stage' (by simpa using hstage')).1
    · exact hothers c' stage' hc (by simpa [hc] using hstage')
  alone c₁ c₂ stage₁ stage₂ hne h₁ h₂ := by
    -- at most one of the two is `c`
    by_cases hc₁ : c₁ = c
    · subst hc₁
      refine (hstage stage₁ (by simpa using h₁)).2.imp_right fun halone => ?_
      exact halone c₂ stage₂ hne.symm (by simpa [hne.symm] using h₂)
    · by_cases hc₂ : c₂ = c
      · subst hc₂
        refine (hstage stage₂ (by simpa using h₂)).2.symm.imp_left fun halone => ?_
        exact halone c₁ stage₁ hne (by simpa [hne] using h₁)
      · exact h.alone c₁ c₂ stage₁ stage₂ hne (by simpa [hc₁] using h₁) (by simpa [hc₂] using h₂)
  versions := hversions
  verified := hverified
  receipts := hreceipts
  promises c' promise' hpromise' := by
    by_cases hc : c' = c
    · subst hc
      exact hpromise promise' (by simpa using hpromise')
    · show promise'.Own run.toRunPlan
      rw [hplan]
      exact h.promises c' promise' (by simpa [hc] using hpromise')
  answers observation hobservation := by
    rcases List.mem_append.mp hobservation with hold | hnew
    · exact h.answers observation hold
    · exact hanswers observation hnew

/-! ## Turns -/

/-- The first call of a run, which has nothing on record. -/
theorem CallStage.legal_first {run : RunRecord} {capability : Capability} {reads : CallReads}
    {stage : Option RequestStage} {promise : Option AdapterPromise}
    (h : CallStage run capability reads stage promise) (hstate : run.state = .authorized)
    (hunrecorded : ∀ operation, ¬ run.Recorded operation) :
    (∀ stage', stage = some stage' → stage'.Legal run) ∧
      ∀ promise', promise = some promise' → promise'.Own run.toRunPlan := by
  cases h with
  | unwired => exact ⟨by simp, by simp⟩
  | inert settled hawaits hrecorded =>
    have hnone : ¬ (settled.Concludes ∨ settled.Replays) := by
      intro h
      obtain ⟨operation, hoperation⟩ := hrecorded h
      exact hunrecorded operation hoperation
    -- a result that awaits nothing may be returned in any state
    refine ⟨fun stage' hstage' => ?_, fun _ h => by cases h⟩
    obtain rfl := Option.some.inj hstage'
    exact {
      state := fun state hstate' => by cases hawaits.symm.trans hstate'
      replays := fun h => absurd (.inr h) hnone
      versions := fun h => absurd (.inl h) hnone
      succeeded := fun h => absurd hawaits h.awaits_ne_none }
  | stale reasonCodes auditEvents hversions =>
    refine ⟨fun stage' hstage' => ?_, fun _ h => by cases h⟩
    obtain rfl := Option.some.inj hstage'
    exact {
      state := fun state hawaits => hstate.trans (Option.some.inj hawaits)
      replays := False.elim
      versions := False.elim
      succeeded := False.elim }
  | lookingUp postcondition prior hpost hlooks => exact absurd hlooks.recorded (hunrecorded prior)
  | entered waiting _ postcondition hpost hinput hreconciles hnew hversions hpromise =>
    refine ⟨fun stage' hstage' => ?_, hpromise⟩
    obtain rfl := Option.some.inj hstage'
    exact {
      state := by rw [hstate, Waiting.awaits, hreconciles]; rfl
      versions := hversions
      request := by rw [hinput]; rfl
      postcondition := by rw [hinput]; exact hpost }

/-- A later call of a run, behind one that concluded: it changes nothing, or looks the
    operation up. -/
theorem CallStage.legal_again {run : RunRecord} {capability : Capability} {reads : CallReads}
    {stage : Option RequestStage} {promise : Option AdapterPromise}
    (h : CallStage run capability reads stage promise) (hconcluded : run.state.Concluded)
    (hversions : run.resourceVersionNow = run.resourceVersionAtProposal)
    (hrecorded : ∃ operation, run.Recorded operation)
    (hreceipts : run.adapter.inner.AcceptedBy run.toRunPlan)
    (hlooks : ∀ prior, run.LooksUp capability reads.now prior → run.state = .unknownOutcome) :
    (∀ stage', stage = some stage' → stage'.Legal run ∧
        (stage'.Inert ∨ ∃ prior, run.LooksUp capability reads.now prior)) ∧
      ∀ promise', promise = some promise' → promise'.Own run.toRunPlan := by
  cases h with
  | unwired => exact ⟨by simp, by simp⟩
  | inert settled hawaits _ =>
    refine ⟨fun stage' hstage' => ?_, fun _ h => by cases h⟩
    obtain rfl := Option.some.inj hstage'
    refine ⟨?_, .inl hawaits⟩
    exact {
      state := fun state hstate => by cases hawaits.symm.trans hstate
      replays := fun _ => hconcluded
      versions := fun _ => hversions
      succeeded := fun h => absurd hawaits h.awaits_ne_none }
  | stale _ _ hdrifted => exact absurd hversions hdrifted
  -- the lookup's answer is what the adapter holds right now
  | lookingUp postcondition prior hpost hlooksUp =>
    refine ⟨fun stage' hstage' => ?_, fun promise' hpromise' => ?_⟩
    · obtain rfl := Option.some.inj hstage'
      exact ⟨⟨hlooks prior hlooksUp, hversions, rfl, hpost⟩, .inr ⟨prior, hlooksUp⟩⟩
    · obtain rfl := Option.some.inj hpromise'
      exact hreceipts.lookup prior.operationId
  | entered _ _ _ _ _ _ hnew =>
    obtain ⟨operation, hoperation⟩ := hrecorded
    exact absurd hoperation (hnew operation)

omit [Host] in
/-- A turn keeps what it finds on record. -/
theorem TurnFacts.succeeded {run : RunRecord} {turn : Turn} (h : TurnFacts run turn)
    (hsucceeded : run.Succeeded) : turn.run.Succeeded := by
  obtain ⟨operation, hoperation, hstate⟩ := hsucceeded
  refine ⟨operation, ?_, hstate⟩
  rw [RunRecord.Recorded, h.store, h.same.plan]
  exact hoperation

omit [Host] in
/-- A request that a turn leaves on its run. -/
theorem TurnFacts.legal_stage {run : RunRecord} {turn : Turn} (h : TurnFacts run turn)
    {stage : RequestStage} (hstage : stage.Legal run) : stage.Legal turn.run :=
  hstage.mono h.same.plan h.same.state h.same.resourceVersionAtProposal h.same.resourceVersionNow
    h.succeeded

/-- The first call of a run keeps the invariant. -/
theorem RunSystem.Legal.first {sys : RunSystem} (h : sys.Legal) (run : RunRecord)
    (hnone : ∀ c, sys.requests c = none) (hplan : run.toRunPlan = sys.run.toRunPlan)
    (hstate : run.state = .authorized) (hunrecorded : ∀ operation, ¬ run.Recorded operation)
    (hreceipts : run.adapter.inner.AcceptedBy run.toRunPlan) (c : RequestId)
    (registry : CapabilityRegistry) (evidence : AuthorizationEvidence) (draw : AuthorizeDraw) :
    (sys.enter c (authorizeAndExecute registry run evidence draw)).Legal := by
  have hfacts := authorizeAndExecute_facts registry run evidence draw
  have hcase := authorizeAndExecute_cases registry run evidence draw
  generalize authorizeAndExecute registry run evidence draw = turn at hfacts hcase
  -- the new stage and promise are those of the first call, if there is one
  have hturn : (∀ stage, turn.stage = some stage → stage.Legal turn.run) ∧
      ∀ promise, turn.promise = some promise → promise.Own turn.run.toRunPlan := by
    cases hcase with
    | unminted => simp [Turn.finish, Turn.stage, Turn.promise]
    | minted capability entry hmint hminted =>
      have hcall := executeForRun_facts (registry.record capability)
        { run.appendRows [entry] with capability := some capability } capability draw.reads
      obtain ⟨hstages, hpromises⟩ := (executeForRun_stage (registry.record capability)
        { run.appendRows [entry] with capability := some capability } capability
        draw.reads).legal_first hstate hunrecorded
      refine ⟨fun stage hstage => hcall.legal_stage (hstages stage hstage),
        fun promise hpromise => ?_⟩
      rw [hfacts.same.plan]
      exact hpromises promise hpromise
  have hauthorized : turn.run.state = .authorized := hfacts.same.state.trans hstate
  refine h.change (hfacts.same.plan.trans hplan) (fun c' stage _ hstage => ?_)
    (fun stage hstage => ⟨hturn.1 stage hstage, .inr fun c' other _ hother => ?_⟩) ?_ ?_ ?_ hturn.2
    hfacts.legal
  · rw [hnone] at hstage
    cases hstage
  · rw [hnone] at hother
    cases hother
  · rw [hauthorized]
    exact False.elim
  · rw [hauthorized]
    intro hverified
    cases hverified
  · rw [hfacts.inner, hfacts.same.plan]
    exact hreceipts

/-- A later call keeps it, if it does not look up an operation a second time. -/
theorem RunSystem.Legal.again {sys : RunSystem} (h : sys.Legal) (hsound : sys.Sound)
    (c : RequestId) (registry : CapabilityRegistry) (capability : Capability) (reads : CallReads)
    (hconcluded : sys.run.state.Concluded)
    (hlooks : ∀ prior, sys.run.LooksUp capability reads.now prior →
      sys.run.state = .unknownOutcome ∧ sys.Alone c) :
    (sys.enter c (executeForRun registry sys.run capability reads)).Legal := by
  have hfacts := executeForRun_facts registry sys.run capability reads
  obtain ⟨hstages, hpromises⟩ :=
    (executeForRun_stage registry sys.run capability reads).legal_again hconcluded
      (h.versions hconcluded) (hsound.recorded hconcluded) h.receipts
      fun prior hprior => (hlooks prior hprior).1
  generalize executeForRun registry sys.run capability reads = turn at hfacts hstages hpromises
  -- the turn changes neither the plan nor the versions nor the adapter
  refine h.change hfacts.same.plan (fun c' stage _ hstage => ?_) (fun stage hstage => ?_)
    (fun _ => ?_) (fun hverified => ?_) ?_ (fun promise hpromise => ?_) hfacts.legal
  · exact hfacts.legal_stage (h.requests c' stage hstage)
  · obtain ⟨hlegal, hinert⟩ := hstages stage hstage
    refine ⟨hfacts.legal_stage hlegal, hinert.imp_right ?_⟩
    rintro ⟨prior, hprior⟩
    exact (hlooks prior hprior).2
  · rw [hfacts.same.resourceVersionNow, hfacts.same.resourceVersionAtProposal]
    exact h.versions hconcluded
  · exact hfacts.succeeded (h.verified (hfacts.same.state ▸ hverified))
  · rw [hfacts.inner, hfacts.same.plan]
    exact h.receipts
  · rw [hfacts.same.plan]
    exact hpromises promise hpromise

/-! ## Steps -/

/-- The request looks its operation up, or has just found nothing. -/
def RequestStage.Reconciling : RequestStage → Prop
  | .waiting (.lookingUp _) | .settled (.returned (.reconciliationRequired _ _)) => True
  | _ => False

/-- A reconciliation that would look the operation up is the first to do so: the run
    is in `UNKNOWN_OUTCOME`, and no other request on it reconciles. -/
def ReconcilesAlone (sys : RunSystem) (reads : CallReads) : Prop :=
  ∀ capability prior,
    sys.run.state = .unknownOutcome ∨ sys.run.state = .reconciliationRequired →
    sys.run.capability = some capability → sys.run.LooksUp capability reads.now prior →
      sys.run.state = .unknownOutcome ∧
        ∀ c stage, sys.requests c = some stage → ¬ stage.Reconciling

omit [Host] in
/-- What awaits an unknown outcome reconciles, or has already found the receipt. -/
theorem RequestStage.reconciling_of_legal {run : RunRecord} {stage : RequestStage}
    (h : stage.Legal run) (hstate : run.state = .unknownOutcome) :
    stage.Inert ∨ stage.Reconciling ∨ run.Succeeded := by
  cases stage with
  | waiting call =>
    refine .inr (.inl ?_)
    cases call with
    | executing | refused => cases hstate.symm.trans h.state
    | lookingUp => trivial
  | settled outcome =>
    cases outcome with
    | threw error => exact .inl rfl
    | returned result =>
      cases result with
      -- any result that awaits `AUTHORIZED` is ruled out by the state
      | ok receipt replay operationId reasonCode auditEvents =>
        by_cases hreplay : reasonCode = some .idempotentReplay
        · subst hreplay
          exact .inl rfl
        · exact .inr (.inr (h.succeeded hreplay))
      | capability | idempotency | adapter => exact .inl rfl
      | precondition | unknownOutcome | postcondition =>
        cases hstate.symm.trans (h.state .authorized rfl)
      | reconciliationRequired => exact .inr (.inl trivial)

/-- An operation that succeeded is not looked up. -/
theorem RunRecord.LooksUp.unsucceeded {run : RunRecord} {capability : Capability}
    {now : Instant} {prior : OperationRecord} (h : run.LooksUp capability now prior) :
    ¬ run.Succeeded := by
  rintro ⟨operation, hoperation, hsucceeded⟩
  obtain rfl : prior = operation := Option.some.inj (h.recorded.symm.trans hoperation)
  exact h.unreplayed hsucceeded

/-- A reconciliation. -/
private theorem RunSystem.Legal.reconcile {sys : RunSystem} (h : sys.Legal) (hsound : sys.Sound)
    (c : RequestId) {registry : CapabilityRegistry} {reads : CallReads} {turn : Turn}
    (hreads : ReconcilesAlone sys reads) (hturn : reconcileRun registry sys.run reads = .ok turn) :
    (sys.enter c turn).Legal := by
  obtain ⟨hstate, capability, hcapability, rfl⟩ := reconcileRun_eq_ok hturn
  refine h.again hsound c registry capability reads ?_ fun prior hprior => ?_
  · rcases hstate with hstate | hstate <;> rw [hstate] <;> trivial
  · obtain ⟨hunknown, hfirst⟩ := hreads capability prior hstate hcapability hprior
    refine ⟨hunknown, fun c' stage _ hstage => ?_⟩
    rcases RequestStage.reconciling_of_legal (h.requests c' stage hstage) hunknown with
      hinert | hreconciling | hsucceeded
    · exact hinert
    · exact absurd hreconciling (hfirst c' stage hstage)
    · exact absurd hsucceeded hprior.unsucceeded

/-- Whatever is not inert is alone. -/
theorem RunSystem.Legal.alone_of_active {sys : RunSystem} (h : sys.Legal) {c : RequestId}
    {stage : RequestStage} (hstage : sys.requests c = some stage) (hactive : ¬ stage.Inert) :
    sys.Alone c := fun c' stage' hne hstage' =>
  (h.alone c c' stage stage' hne.symm hstage hstage').resolve_left hactive

/-- What a settlement of a legal call leaves to be done is legal. -/
private theorem Waiting.Legal.settle {run : RunRecord} {waiting : Waiting} {wakeup : Wakeup}
    {registry : CapabilityRegistry} {shared : Shared} {settled : Settled}
    (h : waiting.Legal run) (hoperation : waiting.input.operation = run.operation)
    (hfound : ∀ answer, wakeup = .lookupSettled (.resolved answer) →
      (AdapterPromise.lookedUp answer).Own run.toRunPlan)
    (hsettlement : Settlement ⟨registry, run.operationStore, run.ledger⟩ waiting wakeup shared
      settled) :
    settled.Legal { run with operationStore := shared.operationStore, ledger := shared.ledger } := by
  have hkey : waiting.idempotencyKey = run.idempotencyKey :=
    congrArg AdapterOperation.idempotencyKey hoperation
  have hstate := h.state
  cases hsettlement with
  | verified _ _ receipt entry hreceives hverified =>
    refine ⟨fun state hawaits => ?_, fun hreplays => ?_, fun _ => h.versions, fun _ => ?_⟩
    · rw [Settled.awaits] at hawaits
      rw [Waiting.awaits] at hstate
      cases hreconciles : waiting.reconciles <;> simp_all
    · cases hreconciles : waiting.reconciles <;> simp_all [Settled.Replays]
    · refine ⟨waiting.succeededRecord receipt, ?_, rfl, isUndefined_of_verified hverified⟩
      show Function.update _ waiting.idempotencyKey _ run.idempotencyKey = _
      rw [hkey, Function.update_self]
  | unverified _ _ receipt entry hreceives hunverified =>
    cases hreceives with
    | executed call =>
      exact ⟨fun state hawaits => hstate.trans (Option.some.inj hawaits), False.elim, False.elim,
        False.elim⟩
    | found call value status hstatus hknown =>
      -- what the run's own adapter has under the operation verifies
      have haccepts := hfound value rfl status hstatus hknown _ h.postcondition
      rw [h.request] at hunverified
      cases haccepts.symm.trans hunverified
  | timedOut call entry =>
    exact ⟨fun state hawaits => hstate.trans (Option.some.inj hawaits), False.elim,
      fun _ => h.versions, False.elim⟩
  | rejected | crashed | refusal | lookupMalformed | lookupRejected =>
    exact ⟨fun state hawaits => (by cases hawaits), False.elim, False.elim, False.elim⟩
  | inconclusive call value status entry hstatus hunknown =>
    exact ⟨fun state hawaits => hstate.trans (Option.some.inj hawaits), False.elim,
      fun _ => h.versions, False.elim⟩

omit [Host] in
/-- What a lookup is answered is what its promise was to be. -/
theorem RunSystem.Wakes.lookedUp {sys : RunSystem} {c : RequestId} {answer : JsValue}
    (h : sys.Wakes c (.lookupSettled (.resolved answer))) :
    sys.promises c = some (.lookedUp answer) := by
  cases h with
  | delivered promise _ hpromise hwakeup =>
    cases promise with
    | sleeping => cases hwakeup
    | executed outcome => cases outcome <;> cases hwakeup
    | lookedUp found =>
      cases hwakeup
      exact hpromise

/-- The end of a call's wait. -/
private theorem RunSystem.Legal.wake {sys : RunSystem} (h : sys.Legal) (hsound : sys.Sound)
    {c : RequestId} {waiting : Waiting} {wakeup : Wakeup} {registry : CapabilityRegistry}
    {stamp : Stamp} {shared : Shared} {settled : Settled}
    (hrequest : sys.requests c = some (.waiting waiting)) (hwakes : sys.Wakes c wakeup)
    (hresume : waiting.resume wakeup ⟨registry, sys.run.operationStore, sys.run.ledger⟩ stamp =
      some (shared, settled)) :
    (sys.change { sys.run with operationStore := shared.operationStore, ledger := shared.ledger } c
      (some (.settled settled)) (sys.promises c) []).Legal := by
  have hwaiting : waiting.Legal sys.run := h.requests c _ hrequest
  have halone : sys.Alone c := h.alone_of_active hrequest id
  -- every other request on the run is inert
  have hfound : ∀ answer, wakeup = .lookupSettled (.resolved answer) →
      (AdapterPromise.lookedUp answer).Own sys.run.toRunPlan := by
    rintro answer rfl
    exact h.promises c _ hwakes.lookedUp
  have hsettled := hwaiting.settle (hsound.requests c _ hrequest).1 hfound (resume_cases hresume)
  refine h.change rfl (fun c' stage hne hstage => ?_) (fun stage hstage => ?_) h.versions
    (fun hverified => ?_) h.receipts (h.promises c) (by simp)
  · exact (h.requests c' stage hstage).inert (halone c' stage hne hstage) id rfl rfl
  · obtain rfl := Option.some.inj hstage
    exact ⟨hsettled, .inr halone⟩
  · -- a run that is verified awaits nothing
    have hawaits : RunState.verified = waiting.awaits := (hverified.symm.trans hwaiting.state)
    rw [Waiting.awaits] at hawaits
    split at hawaits <;> cases hawaits

omit [Host] in
/-- A state behind a concluded call is left for another one. -/
theorem ResultEdge.concluded {state state' : RunState} {result : ExecuteActionResult}
    (h : ResultEdge state result state') (hconcluded : state.Concluded) : state'.Concluded := by
  cases h with
  | verified | stale | unknown | failed => exact hconcluded.elim
  | reconciled | inconclusive => trivial

omit [Host] in
/-- A run becomes verified by a result that put its success on record. -/
theorem ResultEdge.verifies {state : RunState} {result : ExecuteActionResult}
    (h : ResultEdge state result .verified)
    (hreplays : (Settled.returned result).Replays → state.Concluded) :
    (Settled.returned result).Verifies := by
  cases h with
  | verified receipt replay operationId reasonCode auditEvents hreason =>
    exact fun hreplay => (hreplays hreplay).elim
  | reconciled => exact fun hreplay => by cases hreplay

/-- The end of a request: its result has an edge. -/
private theorem RunSystem.Legal.finish {sys : RunSystem} (h : sys.Legal) {c : RequestId}
    {settled : Settled} {now : Instant} {run : RunRecord} {outcome : Except RequestError Unit}
    (hrequest : sys.requests c = some (.settled settled))
    (hfinish : finishExecution sys.run settled now = (run, outcome)) :
    (sys.change run c none (sys.promises c) [.responded outcome]).Legal := by
  have hsettled : settled.Legal sys.run := h.requests c _ hrequest
  cases finishExecution_cases hfinish with
  | threw error =>
    exact h.change rfl (fun c' stage _ hstage => h.requests c' stage hstage) (by simp) h.versions
      h.verified h.receipts (h.promises c)
      (by simp [RunObservation.isIllegalTransition, RequestError.isIllegalTransition])
  | illegal result error hresult =>
    obtain ⟨state, hstate, -⟩ := applyExecutionResult_legal hsettled.state hsettled.unauthorized
    cases hstate.symm.trans hresult
  | finished result state execution lastActionAt hresult =>
    have hanswer : ∀ observation ∈ [RunObservation.responded (.ok ())],
        observation.isIllegalTransition = false := by
      simp [RunObservation.isIllegalTransition]
    by_cases hawaits : (Settled.returned result).awaits = none
    · -- a result without an edge leaves the state
      obtain ⟨state', hstate', hsame⟩ :=
        applyExecutionResult_legal hsettled.state hsettled.unauthorized
      obtain rfl : state = state' := Except.ok.inj (hresult.symm.trans hstate')
      have hstate : state = sys.run.state := hsame hawaits
      refine h.change rfl (fun c' stage _ hstage => ?_) (by simp) (fun hconcluded => ?_)
        (fun hverified => ?_) h.receipts (h.promises c) hanswer
      · exact (h.requests c' stage hstage).mono rfl hstate rfl rfl id
      · exact h.versions (hstate ▸ hconcluded)
      · exact h.verified (hstate ▸ hverified)
    · -- any other request is inert
      have halone : sys.Alone c := h.alone_of_active hrequest hawaits
      have hedge := applyExecutionResult_eq_ok hresult
      refine h.change rfl (fun c' stage hne hstage => ?_) (by simp) (fun hconcluded => ?_)
        (fun hverified => ?_) h.receipts (h.promises c) hanswer
      · refine (h.requests c' stage hstage).inert (halone c' stage hne hstage)
          (fun hconcluded => ?_) rfl rfl
        rcases hedge with hsame | hedge
        · exact hsame ▸ hconcluded
        · exact hedge.concluded hconcluded
      · rcases hedge with hsame | hedge
        · exact h.versions (hsame ▸ hconcluded)
        · exact hsettled.versions (hedge.concludes hconcluded)
      · have hverified : state = .verified := hverified
        subst hverified
        rcases hedge with hsame | hedge
        · exact h.verified hsame.symm
        · exact hsettled.succeeded (hedge.verifies hsettled.replays)

/-- A new run, before its first turn. -/
theorem NewRun.legal {run : RunRecord} (h : NewRun run) : RunSystem.Legal { run := run } where
  requests _ _ hstage := by cases hstage
  alone _ _ _ _ _ hstage := by cases hstage
  versions _ := h.versions
  verified hverified := by cases h.state.symm.trans hverified
  receipts := by
    rw [h.adapter]
    exact FakeAdapter.acceptedBy_empty _
  promises _ _ hpromise := by cases hpromise
  answers _ hobservation := by cases hobservation

/-- A new run keeps to the table. -/
theorem RunSystem.Legal.born {model : ModelAdapter} {sys : RunSystem} (h : Born model sys) :
    sys.Legal := by
  cases h with
  | created scenarioId draw registry run c hnew =>
    have hrun := proposeRun_eq_ok hnew
    have hcase := followVerdict_cases registry draw.authorize hrun.state
    generalize followVerdict registry run draw.authorize = turn at hcase
    have hreceipts := hrun.legal.receipts
    cases hcase with
    | denied | parked =>
      refine hrun.legal.change rfl (fun _ _ _ hstage => (by cases hstage))
        (by simp [Turn.finish, Turn.stage]) False.elim (fun hstate => (by cases hstate)) hreceipts
        (by simp [Turn.finish, Turn.promise]) ?_
      simp [Turn.finish, Turn.observations, Turn.RequestProgress.observations,
        RunObservation.isIllegalTransition]
    | allowed houtcome =>
      exact hrun.legal.first { run with state := .authorized } (fun _ => rfl) rfl rfl
        hrun.unrecorded hreceipts c registry _ draw.authorize

/-- Behind every run is one of the three fakes. -/
theorem isFakeAdapter_adapterKind (scenario : ScenarioId) :
    IsFakeAdapter (adapterKind scenario) := by
  cases scenario with
  | blocked => exact .refund
  | approval | replay | stale => exact .message
  | unknownOutcome => exact .ticket

/-- The inner `execute` of a run's adapter leaves receipts of the run's plan alone. -/
theorem FakeAdapter.AcceptedBy.counted {plan : RunPlan} {adapter adapter' : CountingAdapter}
    {capability : Capability} {draw : AdapterDraw} {outcome : Except AdapterError JsValue}
    (h : adapter.inner.AcceptedBy plan) (htype : capability.actionType = plan.actionType)
    (hexecute : adapter.execute (adapterKind plan.scenario) plan.operation capability
      plan.parameters.toJsValue draw = (adapter', outcome)) : adapter'.inner.AcceptedBy plan := by
  have hcases := CountingAdapter.execute_cases (isFakeAdapter_adapterKind plan.scenario) adapter
    plan.operation capability plan.parameters.toJsValue draw
  rw [hexecute] at hcases
  rcases hcases with ⟨error, herror⟩ | ⟨inner, receipt, hok, hactual, houtcome⟩
  · obtain ⟨rfl, -⟩ := Prod.mk.inj herror
    exact h
  · obtain ⟨rfl, -⟩ := Prod.mk.inj hok
    exact h.execute (htype.symm.trans hactual) houtcome

/-- The inner `execute` of a run's adapter. -/
private theorem RunSystem.Legal.execute {sys : RunSystem} (h : sys.Legal) {c : RequestId}
    {operation : AdapterOperation} {capability : Capability} {params : JsValue}
    {draw : AdapterDraw} {adapter : CountingAdapter} {outcome : Except AdapterError JsValue}
    (hpromise : sys.promises c = some (.sleeping operation capability params))
    (hexecute : sys.run.adapter.execute (adapterKind sys.run.scenario) operation capability params
      draw = (adapter, outcome)) :
    (sys.change { sys.run with adapter := adapter } c (sys.requests c)
      (some (.executed outcome)) []).Legal := by
  obtain ⟨rfl, htype, rfl⟩ := h.promises c _ hpromise
  have hreceipts : adapter.inner.AcceptedBy sys.run.toRunPlan := h.receipts.counted htype hexecute
  refine h.change rfl (fun c' stage _ hstage => ?_) (fun stage hstage => ⟨?_, ?_⟩) h.versions
    h.verified hreceipts (fun promise hnew => ?_) (by simp)
  · exact (h.requests c' stage hstage).mono rfl rfl rfl rfl id
  · exact (h.requests c stage hstage).mono rfl rfl rfl rfl id
  · by_cases hinert : stage.Inert
    · exact .inl hinert
    · exact .inr (h.alone_of_active hstage hinert)
  · obtain rfl := Option.some.inj hnew
    trivial

/-- One step of a run keeps the invariant, if its reconciliations look up alone. -/
theorem RunSystem.Legal.step {sys sys' : RunSystem} (h : sys.Legal) (hsound : sys.Sound)
    (hstep : RunStep ReconcilesAlone sys sys') : sys'.Legal := by
  cases hstep with
  | refused c error hunused hlegal =>
    exact h.change rfl (fun c' stage _ hstage => h.requests c' stage hstage) (by simp) h.versions
      h.verified h.receipts (by simp) (by simpa [RunObservation.isIllegalTransition] using hlegal)
  | approved c registry draw turn hunused hturn =>
    cases approveRun_cases hsound.pinned hturn with
    | approved consumed row hstate happroves hrow =>
      have hidle := hsound.parked (.inr hstate)
      exact h.first { sys.run.appendRows [row] with
          approval := some consumed
          state := .authorized
          lastActionAt := Host.toISOString draw.lastActionAt } hidle.requests rfl rfl
        hidle.unrecorded h.receipts c registry _ draw.authorize
  | replayed c registry reads turn hunused hturn =>
    obtain ⟨hstate, capability, -, rfl⟩ := replayRun_eq_ok hturn
    -- a replay does not look up: the run has a receipt
    refine h.again hsound c registry capability reads (by rw [hstate]; trivial) fun prior hprior => ?_
    exact absurd (h.verified hstate) hprior.unsucceeded
  | reconciled c registry reads turn hunused hreads hturn =>
    exact h.reconcile hsound c hreads hturn
  | drifted c now run hunused hdrift =>
    obtain ⟨hstate, rfl⟩ := simulateDrift_eq_ok hdrift
    have hidle := hsound.parked (.inr hstate)
    -- a drift is simulated before the first request to the adapter
    refine h.change rfl (fun c' stage _ hstage => ?_) (by simp) (fun hconcluded => ?_)
      (fun hverified => ?_) h.receipts (by simp) (by simp [RunObservation.isIllegalTransition])
    · rw [hidle.requests] at hstage
      cases hstage
    · have hconcluded : sys.run.state.Concluded := hconcluded
      rw [hstate] at hconcluded
      exact hconcluded.elim
    · cases hstate.symm.trans hverified
  | checked c stamp run result hunused hverify =>
    obtain ⟨row, -, rfl⟩ := verifyRunLedger_eq_ok hverify
    exact h.change rfl
      (fun c' stage _ hstage => (h.requests c' stage hstage).mono rfl rfl rfl rfl id) (by simp)
      h.versions h.verified h.receipts (by simp) (by simp [RunObservation.isIllegalTransition])
  | executed c operation capability params draw adapter outcome hpromise hexecute =>
    exact h.execute hpromise hexecute
  | woke c waiting wakeup registry stamp shared settled hrequest hwakes hresume =>
    exact h.wake hsound hrequest hwakes hresume
  | resumed c settled now run outcome hrequest hfinish => exact h.finish hrequest hfinish

/-! ## The server -/

/-- In a run in which no operation is looked up twice, no request dies with an illegal
    transition. -/
theorem Server.no_illegal_transition {model : ModelAdapter} {events : List ServerEvent}
    {s : Server}
    (hmeets : Transition.Meets (Server.step model) (Server.ReconcilesIn ReconcilesAlone) {} events)
    (hrun : Transition.run (Server.step model) {} events = some s) :
    ∀ entry ∈ s.trace, entry.observation.isIllegalTransition = false := by
  have hkept : s.Kept fun sys => sys.Sound ∧ sys.Legal := by
    refine run_kept (fun sys hborn => ⟨.born hborn, .born hborn⟩) ?_ hmeets hrun
    rintro sys sys' ⟨hsound, hlegal⟩ hstep
    exact ⟨hsound.step hstep, hlegal.step hsound hstep⟩
  exact hkept.legal fun sys hsys => hsys.2.answers

end

namespace Sample

section
attribute [local instance] node

/-- A ticket whose adapter is slower than the timer. -/
def unknownTicket : List ServerEvent :=
  [.request (.createRun (js "unknown_outcome") createDraw),
    .timeout 0 (stamp "evt_unknown"),
    .resume 0 now]

/-- A reconciliation, from the request to its answer. -/
def reconciliation (c : RequestId) (eventId : String) : List ServerEvent :=
  [.request (.reconcileRun (js "run_000001") (reads "evt_replayed")),
    .deliver c (stamp eventId),
    .resume c now]

theorem unknownTicket_reconciles_legally :
    ∃ s, Transition.run (Server.step FakeModelAdapter.propose) {}
        (unknownTicket ++ reconciliation 1 "evt_reconciled") = some s ∧
      ∀ entry ∈ s.trace, entry.observation.isIllegalTransition = false := by
  have hunknown : ∃ m ∈ Transition.run (Server.step FakeModelAdapter.propose) {} unknownTicket,
      (∀ c < m.nextRequest, (m.requests c).isNone) ∧
      (∀ ref ∈ m.state.runs (js "run_000001"), ∀ run ∈ m.state.records ref,
        run.state = .unknownOutcome) ∧
      (Transition.run (Server.step FakeModelAdapter.propose) m
        (reconciliation 1 "evt_reconciled")).isSome := by
    decide +kernel
  -- the first part of the run reconciles nothing, the second once
  obtain ⟨m, hm, hanswered, hstate, hsome⟩ := hunknown
  obtain ⟨s, hs⟩ := Option.isSome_iff_exists.mp hsome
  have hmeets : Transition.Meets (Server.step FakeModelAdapter.propose)
      (Server.ReconcilesIn ReconcilesAlone) {}
      (unknownTicket ++ reconciliation 1 "evt_reconciled") := by
    refine .append (by simp [unknownTicket, Transition.Meets, Server.ReconcilesIn]) fun m' hm' => ?_
    obtain rfl := Option.some.inj (hm.symm.trans hm')
    refine ⟨fun ref sys hruns hsystem capability prior _ _ _ => ?_,
      by simp [Transition.Meets, Server.ReconcilesIn]⟩
    obtain ⟨run, hrecord, rfl⟩ := Option.map_eq_some_iff.mp hsystem
    refine ⟨hstate ref hruns run hrecord, fun c stage hstage => ?_⟩
    have hnone : m.requests c = none := (Server.run_fresh hm).requests_none
      (fun c hc => Option.isNone_iff_eq_none.mp (hanswered c hc)) c
    simp [Server.view, hnone] at hstage
  have hrun := Transition.run_append_eq_some.mpr ⟨m, hm, hs⟩
  exact ⟨s, hrun, Server.no_illegal_transition hmeets hrun⟩

/-- The page offers a second reconciliation of an operation the first found nothing
    about, and the server accepts it. Its row is written before it dies. -/
theorem secondReconciliation_illegal :
    ∃ s ∈ Transition.run (Server.step FakeModelAdapter.propose) {}
        (unknownTicket ++ reconciliation 1 "evt_reconciled" ++
          reconciliation 2 "evt_reconciled_again"),
      (∃ entry ∈ s.trace, entry.observation.isIllegalTransition = true) ∧
        ∃ run ∈ s.state.records 0, js "reconcile" ∈ availableActions run ∧
          (run.ledger.entries.countP fun entry => entry.type = .reconciliationRequired) = 2 := by
  decide +kernel

end

end Sample

end ActionHarbor
